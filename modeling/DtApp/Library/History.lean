import DtApp.Library.Machine

/-!
# Histories

Properties of a list of things that happened, oldest first: that each was right after what had
happened before it, and that something was opened and not closed since.
-/
namespace History

variable {α : Type}

/-- Every entry is right after what stands before it. -/
def Each (ok : List α → α → Prop) (log : List α) : Prop :=
  ∀ before o after, log = before ++ o :: after → ok before o

/-- Something was opened and not closed since. -/
def Pending (opens closes : α → Prop) (log : List α) : Prop :=
  ∃ before o after, log = before ++ o :: after ∧ opens o ∧ ∀ x ∈ after, ¬closes x

theorem each_nil (ok : List α → α → Prop) : Each ok [] := by
  intro before o after split
  simp at split

theorem not_pending_nil (opens closes : α → Prop) : ¬Pending opens closes [] := by
  rintro ⟨before, o, after, split, _⟩
  simp at split

/-- An entry of a longer history is the last one or stood there before. -/
theorem split_append_singleton {log before after : List α} {x o : α}
    (split : log ++ [x] = before ++ o :: after) :
    (before = log ∧ o = x ∧ after = []) ∨ ∃ rest, after = rest ++ [x] ∧ log = before ++ o :: rest := by
  cases after using List.reverseRecOn with
  | nil =>
    obtain ⟨same, last⟩ := List.append_inj' split rfl
    cases last
    exact .inl ⟨same.symm, rfl, rfl⟩
  | append_singleton rest y =>
    rw [← List.cons_append, ← List.append_assoc] at split
    obtain ⟨same, last⟩ := List.append_inj' split rfl
    cases last
    exact .inr ⟨rest, rfl, same⟩

@[simp] theorem each_append_singleton {ok : List α → α → Prop} {log : List α} {x : α} :
    Each ok (log ++ [x]) ↔ Each ok log ∧ ok log x := by
  constructor
  · intro each
    refine ⟨?_, each log x [] rfl⟩
    rintro before o after rfl
    exact each before o (after ++ [x]) (by simp)
  · rintro ⟨each, last⟩ before o after split
    rcases split_append_singleton split with ⟨rfl, rfl, _⟩ | ⟨rest, _, earlier⟩
    · exact last
    · exact each before o rest earlier

@[simp] theorem pending_append_singleton {opens closes : α → Prop} {log : List α} {x : α} :
    Pending opens closes (log ++ [x]) ↔ opens x ∨ Pending opens closes log ∧ ¬closes x := by
  constructor
  · rintro ⟨before, o, after, split, opened, unclosed⟩
    rcases split_append_singleton split with ⟨_, rfl, _⟩ | ⟨rest, rfl, earlier⟩
    · exact .inl opened
    · refine .inr ⟨⟨before, o, rest, earlier, opened, ?_⟩, unclosed x (by simp)⟩
      exact fun y member => unclosed y (List.mem_append_left _ member)
  · rintro (opened | ⟨⟨before, o, after, rfl, opened, unclosed⟩, last⟩)
    · exact ⟨log, x, [], rfl, opened, by simp⟩
    · refine ⟨before, o, after ++ [x], by simp, opened, ?_⟩
      intro y member
      rcases List.mem_append.mp member with earlier | here
      · exact unclosed y earlier
      · rwa [List.mem_singleton.mp here]

/-- What neither opens nor closes does not matter. -/
theorem pending_append_silent {opens closes : α → Prop} {log outs : List α}
    (silent : ∀ x ∈ outs, ¬opens x ∧ ¬closes x) :
    Pending opens closes (log ++ outs) ↔ Pending opens closes log := by
  induction outs using List.reverseRecOn with
  | nil => rw [List.append_nil]
  | append_singleton outs x ih =>
    obtain ⟨unopened, unclosed⟩ := silent x (by simp)
    rw [← List.append_assoc, pending_append_singleton, ih fun y here => silent y (List.mem_append_left _ here)]
    simp [unopened, unclosed]

theorem each_append {ok : List α → α → Prop} {log outs : List α} :
    Each ok (log ++ outs) ↔ Each ok log ∧ Each (fun before => ok (log ++ before)) outs := by
  induction outs using List.reverseRecOn with
  | nil =>
    rw [List.append_nil]
    exact (and_iff_left (each_nil _)).symm
  | append_singleton outs x ih =>
    rw [← List.append_assoc, each_append_singleton, each_append_singleton, ih, and_assoc]

theorem Each.of_append {ok : List α → α → Prop} {log rest : List α} (each : Each ok (log ++ rest)) :
    Each ok log := by
  rintro before o after rfl
  exact each before o (after ++ rest) (by simp)

section opened

variable {opens closes : α → Prop} {log before after before' after' : List α} {o o' : α}
  (fresh : Each (fun before o => opens o → ¬Pending opens closes before) log)

include fresh

/-- When nothing is opened that is still open, nothing is opened behind what is open. -/
theorem Each.not_behind (split : log = before ++ o :: after) (opened : opens o)
    (unclosed : ∀ x ∈ after, ¬closes x) (member : o' ∈ after) : ¬opens o' := by
  obtain ⟨between, later, rfl⟩ := List.append_of_mem member
  intro opened'
  apply fresh (before ++ o :: between) o' later (by simp [split]) opened'
  exact ⟨before, o, between, rfl, opened, fun x here => unclosed x (List.mem_append_left _ here)⟩

/-- Then what is open was opened at one place. -/
theorem Each.opened_once (split : log = before ++ o :: after) (split' : log = before' ++ o' :: after')
    (opened : opens o) (opened' : opens o') (unclosed : ∀ x ∈ after, ¬closes x)
    (unclosed' : ∀ x ∈ after', ¬closes x) : before = before' := by
  have both := split.symm.trans split'
  rcases List.append_eq_append_iff.mp both with ⟨between, later, rest⟩ | ⟨between, later, rest⟩
  · cases between with
    | nil => rw [later, List.append_nil]
    | cons first between =>
      -- the second place is behind the first
      rw [List.cons_append] at rest
      cases rest
      exact absurd opened' (fresh.not_behind split opened unclosed (by simp))
  · cases between with
    | nil => rw [later, List.append_nil]
    | cons first between =>
      rw [List.cons_append] at rest
      cases rest
      exact absurd opened (fresh.not_behind split' opened' unclosed' (by simp))

end opened

/-! ## Histories of a run -/

/-- The outputs of an event open and close what the event does. -/
inductive Mirrors {ε ω : Type} (opens closes : ω → Prop) (opens' closes' : ε → Prop) (e : ε) :
    List ω → Prop
  | silent : ¬opens' e → ¬closes' e → Mirrors opens closes opens' closes' e []
  | one (o : ω) : (opens o ↔ opens' e) → (closes o ↔ closes' e) →
      Mirrors opens closes opens' closes' e [o]

theorem Mirrors.pending {ε ω : Type} {opens closes : ω → Prop} {opens' closes' : ε → Prop} {e : ε}
    {outs : List ω} (mirrors : Mirrors opens closes opens' closes' e outs) {log : List ω} {es : List ε}
    (same : Pending opens closes log ↔ Pending opens' closes' es) :
    Pending opens closes (log ++ outs) ↔ Pending opens' closes' (es ++ [e]) := by
  cases mirrors with
  | silent unopened unclosed => simp [same, unopened, unclosed]
  | one o opened closed => simp [same, opened, closed]

/-- What is pending in the log of a run is what is pending in its events. -/
theorem run_pending {σ ε ω : Type} {m : Machine σ ε ω} {opens closes : ω → Prop}
    {opens' closes' : ε → Prop}
    (mirrors : ∀ s e, Mirrors opens closes opens' closes' e (m.step s e).2) (es : List ε) :
    Pending opens closes (m.run m.start es).log ↔ Pending opens' closes' es := by
  refine m.run_invariant (fun es c => Pending opens closes c.log ↔ Pending opens' closes' es) ?_ ?_ es
  · exact iff_of_false (not_pending_nil opens closes) (not_pending_nil opens' closes')
  · intro es e same
    exact (mirrors _ e).pending same

end History
