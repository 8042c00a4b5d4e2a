import DtApp.Library.History

/-!
# Inventories

Objects that are named by the numbers of their allocations, in the order of the allocations. What
holds them is counted: each is held once or was released once, and it is not used after that.
-/
namespace Inventory

open History

/-- What is done with an object. -/
inductive Use where
  | allocated (item : Nat)
  | accessed (item : Nat)
  | released (item : Nat)
  deriving DecidableEq

/-- How often each object is held, and how many were allocated. -/
structure Stock where
  held : Nat → Nat
  items : Nat

/-- An access comes before a release. -/
def Unreleased (before : List Use) (o : Use) : Prop :=
  ∀ item, o = .accessed item → .released item ∉ before

/-- Every object is held once or was released once, and not used after that. -/
structure Kept (stock : Stock) (uses : List Use) : Prop where
  balance : ∀ item, stock.held item + uses.count (.released item) =
    if item < stock.items then 1 else 0
  untouched : Each Unreleased uses

/-- What is accessed is held, and not released before. -/
def InHand (stock : Stock) (before : List Use) (o : Use) : Prop :=
  ∀ item, o = .accessed item → .released item ∉ before ∧ 0 < stock.held item

/-- What a step may do: what is held was held before or is new, numbers are given out in their order,
and only what is held is accessed. -/
structure Handles (stock stock' : Stock) (uses : List Use) : Prop where
  balance : ∀ item, stock'.held item + uses.count (.released item) =
    stock.held item + uses.count (.allocated item)
  fresh : ∀ item, uses.count (.allocated item) + (if item < stock.items then 1 else 0) =
    if item < stock'.items then 1 else 0
  access : Each (InHand stock) uses

variable {stock stock' : Stock} {uses outs : List Use} {item : Nat}

theorem kept_nil (empty : ∀ item, stock.held item = 0) (none : stock.items = 0) : Kept stock [] :=
  ⟨fun item => by simp [empty, none], each_nil _⟩

/-- The step rule. -/
theorem Kept.handles (kept : Kept stock uses) (step : Handles stock stock' outs) :
    Kept stock' (uses ++ outs) := by
  refine ⟨fun item => ?_, each_append.mpr ⟨kept.untouched, ?_⟩⟩
  · have before := kept.balance item
    have moved := step.balance item
    have fresh := step.fresh item
    rw [List.count_append]
    omega
  · -- what is accessed is held, hence was not released before
    intro before o after split item accessed
    obtain ⟨unreleased, held⟩ := step.access before o after split item accessed
    have most := kept.balance item
    have never : uses.count (.released item) = 0 := by split at most <;> omega
    rw [List.mem_append, not_or]
    exact ⟨List.count_eq_zero.mp never, unreleased⟩

theorem Kept.released_once (kept : Kept stock uses) (item : Nat) :
    uses.count (.released item) ≤ 1 := by
  have balance := kept.balance item
  split at balance <;> omega

/-! ## Steps -/

/-- Nothing happens, or an object goes from one holder to another and is accessed on the way. -/
theorem Handles.moved (same : ∀ i, stock'.held i = stock.held i) (items : stock'.items = stock.items)
    (only : ∀ o ∈ outs, ∃ i, o = .accessed i ∧ 0 < stock.held i) : Handles stock stock' outs := by
  have none (o : Use) (other : ∀ i, o ≠ .accessed i) : outs.count o = 0 := by
    refine List.count_eq_zero.mpr fun member => ?_
    obtain ⟨i, eq, _⟩ := only o member
    exact other i eq
  refine ⟨fun i => ?_, fun i => ?_, ?_⟩
  · rw [none (.released i) (by simp), none (.allocated i) (by simp), same]
  · rw [none (.allocated i) (by simp), items, Nat.zero_add]
  · rintro before o after rfl i rfl
    obtain ⟨_, ⟨⟩, held⟩ := only (.accessed i) (by simp)
    refine ⟨fun member => ?_, held⟩
    obtain ⟨_, absurd, _⟩ := only (.released i) (by simp [member])
    cases absurd

theorem Handles.stays (same : ∀ i, stock'.held i = stock.held i) (items : stock'.items = stock.items) :
    Handles stock stock' [] :=
  .moved same items fun _ member => absurd member List.not_mem_nil

theorem Handles.passed (same : ∀ i, stock'.held i = stock.held i) (items : stock'.items = stock.items)
    (held : 0 < stock.held item) : Handles stock stock' [.accessed item] :=
  .moved same items fun _ member => ⟨item, List.mem_singleton.mp member, held⟩

/-- The next number is allocated. -/
theorem Handles.allocated
    (held : ∀ i, stock'.held i = stock.held i + if stock.items = i then 1 else 0)
    (items : stock'.items = stock.items + 1) : Handles stock stock' [.allocated stock.items] := by
  refine ⟨fun i => ?_, fun i => ?_, ?_⟩
  · simp only [List.count_singleton, held i]
    grind
  · simp only [List.count_singleton, items]
    grind
  · rintro before o after split i rfl
    have member : Use.accessed i ∈ [Use.allocated stock.items] := by simp [split]
    simp at member

/-- An object is given back, perhaps after a last access. -/
theorem Handles.released (accesses : List Use) (accessed : ∀ o ∈ accesses, o = .accessed item)
    (held : ∀ i, stock'.held i + (if item = i then 1 else 0) = stock.held i)
    (items : stock'.items = stock.items) : Handles stock stock' (accesses ++ [.released item]) := by
  have none (o : Use) (other : o ≠ .accessed item) : accesses.count o = 0 :=
    List.count_eq_zero.mpr fun member => other (accessed o member)
  refine ⟨fun i => ?_, fun i => ?_, ?_⟩
  · rw [List.count_append, List.count_append, none (.released i) (by simp),
      none (.allocated i) (by simp), ← held i]
    simp only [List.count_singleton]
    grind
  · rw [List.count_append, none (.allocated i) (by simp), items]
    simp
  · refine each_append.mpr ⟨?_, ?_⟩
    · rintro before o after rfl i rfl
      cases accessed (.accessed i) (by simp)
      constructor
      · intro member
        have absurd := accessed (.released item) (by simp [member])
        cases absurd
      · have most := held item
        rw [if_pos rfl] at most
        omega
    · rintro before o after split i rfl
      have member : Use.accessed i ∈ [Use.released item] := by simp [split]
      simp at member

end Inventory
