import Mathlib.Logic.Relation
import Mathlib.Data.List.Count
import Mathlib.Data.List.Induction

/-!
# Machines with an output log

A machine reads one event at a time, changes its state and puts out a list of
observations. A configuration is a state with everything put out before it was
reached, so a property of a configuration can speak about the past of a run. A run
may be restricted to admissible events; `True` admits every event.
-/

/-- A deterministic state machine with outputs. -/
structure Machine (σ ε ω : Type) where
  init : σ
  step : σ → ε → σ × List ω

namespace Machine

variable {σ ε ω : Type}

/-- A state together with the log of the run that led to it. -/
structure Config (σ ω : Type) where
  state : σ
  log : List ω

/-- The configuration after one event. -/
def next (m : Machine σ ε ω) (c : Config σ ω) (e : ε) : Config σ ω :=
  ⟨(m.step c.state e).1, c.log ++ (m.step c.state e).2⟩

def start (m : Machine σ ε ω) : Config σ ω := ⟨m.init, []⟩

def run (m : Machine σ ε ω) (c : Config σ ω) (es : List ε) : Config σ ω := es.foldl m.next c

/-- One admissible step. -/
def Steps (m : Machine σ ε ω) (ok : Config σ ω → ε → Prop) (c d : Config σ ω) : Prop :=
  ∃ e, ok c e ∧ d = m.next c e

/-- Any number of admissible steps. -/
def Leads (m : Machine σ ε ω) (ok : Config σ ω → ε → Prop) : Config σ ω → Config σ ω → Prop :=
  Relation.ReflTransGen (m.Steps ok)

def Reachable (m : Machine σ ε ω) (ok : Config σ ω → ε → Prop) (c : Config σ ω) : Prop :=
  m.Leads ok m.start c

/-- Every event of the list is admissible where the run takes it. -/
def Admits (m : Machine σ ε ω) (ok : Config σ ω → ε → Prop) : Config σ ω → List ε → Prop
  | _, [] => True
  | c, e :: es => ok c e ∧ m.Admits ok (m.next c e) es

/-- Whether a list of events is admissible is decided by running it. -/
instance decidableAdmits (m : Machine σ ε ω) (ok : Config σ ω → ε → Prop)
    [∀ c e, Decidable (ok c e)] : (c : Config σ ω) → (es : List ε) → Decidable (m.Admits ok c es)
  | _, [] => isTrue trivial
  | c, e :: es =>
    have := decidableAdmits m ok (m.next c e) es
    inferInstanceAs (Decidable (_ ∧ _))

/-- Entries of a log of which there is at most one are equal. -/
theorem eq_of_countP_le_one {p : ω → Bool} {log : List ω} (once : log.countP p ≤ 1) {a b : ω}
    (first : a ∈ log) (second : b ∈ log) (left : p a = true) (right : p b = true) : a = b := by
  rw [List.countP_eq_length_filter] at once
  have inFirst : a ∈ log.filter p := List.mem_filter.mpr ⟨first, left⟩
  have inSecond : b ∈ log.filter p := List.mem_filter.mpr ⟨second, right⟩
  cases found : log.filter p with
  | nil =>
    rw [found] at inFirst
    cases inFirst
  | cons c rest =>
    rw [found, List.length_cons] at once
    have empty : rest = [] := List.eq_nil_of_length_eq_zero (by omega)
    rw [found, empty, List.mem_singleton] at inFirst inSecond
    rw [inFirst, inSecond]

variable {m : Machine σ ε ω} {ok : Config σ ω → ε → Prop}

theorem leads_run (es : List ε) (c : Config σ ω) (admits : m.Admits ok c es) :
    m.Leads ok c (m.run c es) := by
  induction es generalizing c with
  | nil => exact .refl
  | cons e es ih => exact .head ⟨e, admits.1, rfl⟩ (ih (m.next c e) admits.2)

@[simp] theorem run_append (es : List ε) (e : ε) (c : Config σ ω) :
    m.run c (es ++ [e]) = m.next (m.run c es) e := by
  simp [run]

/-- A run is cut at one of its events. -/
theorem run_cut (before after : List ε) (e : ε) (c : Config σ ω) :
    m.run c (before ++ e :: after) = m.run (m.next (m.run c before) e) after := by
  simp [run]

/-- The run rule: what holds before the first event and is kept by one more event holds after
every list of events. -/
theorem run_invariant (Inv : List ε → Config σ ω → Prop) (init : Inv [] m.start)
    (step : ∀ es e, Inv es (m.run m.start es) → Inv (es ++ [e]) (m.next (m.run m.start es) e))
    (es : List ε) : Inv es (m.run m.start es) := by
  induction es using List.reverseRecOn with
  | nil => exact init
  | append_singleton es e ih =>
    rw [run_append]
    exact step es e ih

theorem reachable_run (es : List ε) (admits : m.Admits ok m.start es) :
    m.Reachable ok (m.run m.start es) :=
  leads_run es m.start admits

/-- Events that are admissible everywhere are admissible where a run takes them. -/
theorem admits_of_forall {p : ε → Prop} (es : List ε) (every : ∀ e ∈ es, p e) (c : Config σ ω) :
    m.Admits (fun _ e => p e) c es := by
  induction es generalizing c with
  | nil => trivial
  | cons e es ih =>
    exact ⟨every e List.mem_cons_self, ih (fun e' member => every e' (List.mem_cons_of_mem _ member)) _⟩

/-- A run of an unrestricted machine is admissible. -/
theorem admits_true (es : List ε) (c : Config σ ω) : m.Admits (fun _ _ => True) c es :=
  admits_of_forall es (fun _ _ => trivial) c

/-- The first part of an admissible run is admissible. -/
theorem Admits.of_append {es es' : List ε} {c : Config σ ω} (admits : m.Admits ok c (es ++ es')) :
    m.Admits ok c es := by
  induction es generalizing c with
  | nil => trivial
  | cons e es ih => exact ⟨admits.1, ih admits.2⟩

/-- What no step puts out but an inadmissible one is missing from a log exactly when the run was
admissible. -/
theorem run_avoids_iff {bad : ω → Prop}
    (step : ∀ c e, (∀ o ∈ (m.step c.state e).2, ¬bad o) ↔ ok c e) (es : List ε) (c : Config σ ω) :
    (∀ o ∈ (m.run c es).log, ¬bad o) ↔ (∀ o ∈ c.log, ¬bad o) ∧ m.Admits ok c es := by
  induction es generalizing c with
  | nil => exact (and_iff_left trivial).symm
  | cons e es ih =>
    have stepped : (∀ o ∈ (m.next c e).log, ¬bad o) ↔ (∀ o ∈ c.log, ¬bad o) ∧ ok c e := by
      rw [← step c e]
      exact List.forall_mem_append
    exact (ih (m.next c e)).trans ((and_congr_left' stepped).trans and_assoc)

theorem Reachable.next {c : Config σ ω} (reach : m.Reachable ok c) {e : ε} (admissible : ok c e) :
    m.Reachable ok (m.next c e) :=
  Relation.ReflTransGen.tail reach ⟨e, admissible, rfl⟩

/-- The invariant rule: what holds at the start and is kept by every admissible step
from a reachable configuration holds of every reachable configuration. -/
theorem Reachable.invariant (Inv : Config σ ω → Prop) (init : Inv m.start)
    (step : ∀ c e, m.Reachable ok c → ok c e → Inv c → Inv (m.next c e))
    {c : Config σ ω} (reach : m.Reachable ok c) : Inv c := by
  induction reach with
  | refl => exact init
  | tail reach last ih =>
    obtain ⟨e, admissible, rfl⟩ := last
    exact step _ e reach admissible ih

/-- The stability rule: what every admissible step keeps, a run keeps. -/
theorem Leads.stable (P : Config σ ω → Prop)
    (step : ∀ c e, ok c e → P c → P (m.next c e))
    {c d : Config σ ω} (leads : m.Leads ok c d) (holds : P c) : P d := by
  induction leads with
  | refl => exact holds
  | tail _ last ih =>
    obtain ⟨e, admissible, rfl⟩ := last
    exact step _ e admissible ih

/-- What is reached is reached by a list of events. -/
theorem Reachable.exists_run {c : Config σ ω} (reach : m.Reachable ok c) :
    ∃ es, c = m.run m.start es := by
  induction reach with
  | refl => exact ⟨[], rfl⟩
  | tail _ last ih =>
    obtain ⟨e, _, rfl⟩ := last
    obtain ⟨es, rfl⟩ := ih
    exact ⟨es ++ [e], (run_append es e _).symm⟩

theorem Leads.reachable {c d : Config σ ω} (leads : m.Leads ok c d)
    (reach : m.Reachable ok c) : m.Reachable ok d :=
  Relation.ReflTransGen.trans reach leads

/-- The log only grows. -/
theorem Leads.log_prefix {c d : Config σ ω} (leads : m.Leads ok c d) : c.log <+: d.log := by
  induction leads with
  | refl => exact List.prefix_rfl
  | tail _ last ih =>
    obtain ⟨e, _, rfl⟩ := last
    exact ih.trans (List.prefix_append _ _)

/-- The origin rule: an output of a run was put out by an admissible step from a reachable
configuration, and what the step had found in the log stands before it. -/
theorem Reachable.origin {c : Config σ ω} (reach : m.Reachable ok c) {pre post : List ω} {o : ω}
    (split : c.log = pre ++ o :: post) :
    ∃ d e before after, m.Reachable ok d ∧ ok d e ∧ m.Leads ok (m.next d e) c ∧
      (m.step d.state e).2 = before ++ o :: after ∧ pre = d.log ++ before := by
  induction reach generalizing post with
  | refl => simp [start] at split
  | @tail d _ reach last ih =>
    have stepped := last
    obtain ⟨e, admissible, rfl⟩ := last
    simp only [Machine.next] at split
    -- the split point lies in the last step's outputs or before them
    rcases List.append_eq_append_iff.mp split with ⟨before, eq, outs⟩ | ⟨rest, eq, later⟩
    · exact ⟨d, e, before, post, reach, admissible, .refl, outs, eq⟩
    · cases rest with
      | nil =>
        rw [List.append_nil] at eq
        exact ⟨d, e, [], post, reach, admissible, .refl, later.symm, by rw [eq, List.append_nil]⟩
      | cons first rest =>
        -- the output stands in the log that the last step found
        rw [List.cons_append] at later
        cases later
        obtain ⟨b, e', before, after, reached, admissible', leads, outs, eq'⟩ := ih eq
        exact ⟨b, e', before, after, reached, admissible', leads.tail stepped, outs, eq'⟩

theorem Reachable.origin_of_mem {c : Config σ ω} (reach : m.Reachable ok c) {o : ω} (member : o ∈ c.log) :
    ∃ d e, m.Reachable ok d ∧ ok d e ∧ m.Leads ok (m.next d e) c ∧ o ∈ (m.step d.state e).2 := by
  obtain ⟨pre, post, split⟩ := List.append_of_mem member
  obtain ⟨d, e, before, after, reached, admissible, leads, outs, _⟩ := reach.origin split
  refine ⟨d, e, reached, admissible, leads, ?_⟩
  rw [outs]
  exact List.mem_append_right _ List.mem_cons_self

/-- The projection rule: when each step looks like a step of another machine or like none, a
reachable configuration looks like one that the other machine reaches. -/
theorem Reachable.project {σ' ε' ω' : Type} {m' : Machine σ' ε' ω'} {ok' : Config σ' ω' → ε' → Prop}
    (view : Config σ ω → Config σ' ω') (init : view m.start = m'.start)
    (step : ∀ c e, ok c e → view (m.next c e) = view c ∨
      ∃ e', ok' (view c) e' ∧ view (m.next c e) = m'.next (view c) e')
    {c : Config σ ω} (reach : m.Reachable ok c) : m'.Reachable ok' (view c) := by
  have start : m'.Reachable ok' (view m.start) := by
    rw [init]
    exact .refl
  refine reach.invariant (fun c => m'.Reachable ok' (view c)) start ?_
  intro c e _ admissible reached
  rcases step c e admissible with same | ⟨e', admissible', stepped⟩
  · rw [same]
    exact reached
  · rw [stepped]
    exact reached.next admissible'

/-- The simulation rule: `Reachable.project` where only steps from reachable configurations need to look
like steps of the other machine. -/
theorem Reachable.simulate {σ' ε' ω' : Type} {m' : Machine σ' ε' ω'} {ok' : Config σ' ω' → ε' → Prop}
    (view : Config σ ω → Config σ' ω') (init : view m.start = m'.start)
    (step : ∀ c e, m.Reachable ok c → ok c e → view (m.next c e) = view c ∨
      ∃ e', ok' (view c) e' ∧ view (m.next c e) = m'.next (view c) e')
    {c : Config σ ω} (reach : m.Reachable ok c) : m'.Reachable ok' (view c) := by
  induction reach with
  | refl =>
    rw [init]
    exact .refl
  | tail reach last ih =>
    obtain ⟨e, admissible, rfl⟩ := last
    rcases step _ e reach admissible with same | ⟨e', admissible', stepped⟩
    · rwa [same]
    · rw [stepped]
      exact ih.next admissible'

/-- The projection rule for steps that look like any number of steps of the other machine. -/
theorem Reachable.projectLeads {σ' ε' ω' : Type} {m' : Machine σ' ε' ω'} {ok' : Config σ' ω' → ε' → Prop}
    (view : Config σ ω → Config σ' ω') (init : view m.start = m'.start)
    (step : ∀ c e, ok c e → m'.Leads ok' (view c) (view (m.next c e)))
    {c : Config σ ω} (reach : m.Reachable ok c) : m'.Reachable ok' (view c) := by
  induction reach with
  | refl =>
    rw [init]
    exact .refl
  | tail reach last ih =>
    obtain ⟨e, admissible, rfl⟩ := last
    exact (step _ e admissible).reachable ih

/-- The progress rule: when no step raises the rank unless something happens at it, and one with an
event of a kind lowers it, then it happens in a run with more events of the kind than the rank. -/
theorem Admits.happens (kind : ε → Bool) (rank : Config σ ω → Nat) (happens : Config σ ω → ε → Prop)
    (descends : ∀ c e, m.Reachable ok c → ok c e → ¬happens c e →
      rank (m.next c e) + (if kind e then 1 else 0) ≤ rank c)
    (es : List ε) (c : Config σ ω) (reach : m.Reachable ok c) (admits : m.Admits ok c es)
    (enough : rank c < es.countP kind) :
    ∃ before e after, es = before ++ e :: after ∧ m.Reachable ok (m.run c before) ∧
      happens (m.run c before) e := by
  induction es generalizing c with
  | nil => cases enough
  | cons e es ih =>
    by_cases now : happens c e
    · exact ⟨[], e, es, rfl, reach, now⟩
    · have lower := descends c e reach admits.1 now
      rw [List.countP_cons] at enough
      have left : rank (m.next c e) < es.countP kind := by omega
      obtain ⟨before, e', after, rfl, reached, later⟩ := ih (m.next c e) (reach.next admits.1) admits.2 left
      exact ⟨e :: before, e', after, rfl, reached, later⟩

/-- The rank rule: the progress rule for a place that the run passes. -/
theorem Admits.passes (kind : ε → Bool) (rank : Config σ ω → Nat) (goal : Config σ ω → Prop)
    (descends : ∀ c e, m.Reachable ok c → ok c e → ¬goal c →
      rank (m.next c e) + (if kind e then 1 else 0) ≤ rank c)
    (es : List ε) (c : Config σ ω) (reach : m.Reachable ok c) (admits : m.Admits ok c es)
    (enough : rank c < es.countP kind) :
    ∃ before after, es = before ++ after ∧ goal (m.run c before) := by
  obtain ⟨before, e, after, split, _, passed⟩ :=
    Admits.happens kind rank (fun c _ => goal c) descends es c reach admits enough
  exact ⟨before, e :: after, split, passed⟩

end Machine
