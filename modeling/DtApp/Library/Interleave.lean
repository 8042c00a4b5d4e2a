import Mathlib.Logic.Function.Basic
import DtApp.Library.Machine

/-!
# Interleaving machines

A family of machines runs side by side: each step is a step of one of them, and the log
says whose output each entry is. Restricted to one member, a run is a run of this member.
-/
namespace Machine

variable {ι σ ε ω : Type} [DecidableEq ι]

def interleave (m : ι → Machine σ ε ω) : Machine (ι → σ) (ι × ε) (ι × ω) where
  init i := (m i).init
  step s e := (Function.update s e.1 ((m e.1).step (s e.1) e.2).1,
    ((m e.1).step (s e.1) e.2).2.map (Prod.mk e.1))

/-- The entries of a log that belong to one member. -/
def entries (i : ι) (log : List (ι × ω)) : List ω :=
  log.filterMap fun o => if o.1 = i then some o.2 else none

/-- A configuration as one member sees it. -/
def Config.at (c : Config (ι → σ) (ι × ω)) (i : ι) : Config σ ω := ⟨c.state i, entries i c.log⟩

@[simp] theorem mem_entries (i : ι) (o : ω) (log : List (ι × ω)) : o ∈ entries i log ↔ (i, o) ∈ log := by
  simp only [entries, List.mem_filterMap, Prod.exists, Option.ite_none_right_eq_some,
    Option.some.injEq]
  constructor
  · rintro ⟨j, o', member, rfl, rfl⟩
    exact member
  · intro member
    exact ⟨i, o, member, rfl, rfl⟩

theorem entries_append (i : ι) (xs ys : List (ι × ω)) :
    entries i (xs ++ ys) = entries i xs ++ entries i ys :=
  List.filterMap_append

theorem entries_map_self (i : ι) (outs : List ω) : entries i (outs.map (Prod.mk i)) = outs := by
  induction outs with
  | nil => rfl
  | cons o outs ih =>
    rw [entries] at ih
    simp only [entries, List.map_cons, List.filterMap_cons, if_true, ih]

theorem entries_map_other (i j : ι) (different : j ≠ i) (outs : List ω) :
    entries i (outs.map (Prod.mk j)) = [] := by
  induction outs with
  | nil => rfl
  | cons o outs ih =>
    rw [entries] at ih
    simp only [entries, List.map_cons, List.filterMap_cons, if_neg different, ih]

/-- The output of a step is its member's. -/
theorem mem_interleave_step (m : ι → Machine σ ε ω) (s : ι → σ) (i j : ι) (e : ε) (o : ω)
    (out : (i, o) ∈ ((interleave m).step s (j, e)).2) : j = i ∧ o ∈ ((m i).step (s i) e).2 := by
  obtain ⟨o', member, eq⟩ := List.mem_map.mp out
  obtain ⟨rfl, rfl⟩ := Prod.mk.inj eq
  exact ⟨rfl, member⟩

variable {m : ι → Machine σ ε ω} {ok : Config (ι → σ) (ι × ω) → ι × ε → Prop}

/-- Each member runs on its own. -/
theorem Reachable.at {c : Config (ι → σ) (ι × ω)} (reach : (interleave m).Reachable ok c) (i : ι) :
    (m i).Reachable (fun _ _ => True) (c.at i) := by
  refine reach.project (fun c => c.at i) rfl ?_
  rintro c ⟨j, e⟩ _
  by_cases same : j = i
  · subst same
    refine .inr ⟨e, trivial, ?_⟩
    simp only [Config.at, Machine.next, interleave, entries_append, entries_map_self,
      Function.update_self]
  · left
    simp only [Config.at, Machine.next, interleave, entries_append, entries_map_other i j same,
      Function.update_of_ne (Ne.symm same), List.append_nil]

end Machine
