import Mathlib.Data.List.Perm.Basic
import Mathlib.Data.List.FinRange

/-!
# A bag in an array

An allocated block of cells of which a prefix is in use. A new item goes behind the
prefix of a block that is one cell longer; an item is removed by moving the last one
into its cell. The order of the items is therefore arbitrary, and what the operations
mean is said up to permutation. A reference to an item is its index, bounded by the
number of items, so a dangling reference cannot be written down.
-/

/-- A block of cells and the number of cells in use. -/
structure Bag (α : Type) where
  slots : List α
  len : Nat
  len_le : len ≤ slots.length

namespace Bag

variable {α : Type}

def empty : Bag α := ⟨[], 0, Nat.le_refl 0⟩

/-- The items in use, in the order of their cells. -/
def items (b : Bag α) : List α := b.slots.take b.len

@[simp] theorem items_length (b : Bag α) : b.items.length = b.len := by
  simp [items, b.len_le]

def get (b : Bag α) (i : Fin b.len) : α := b.items.get (i.cast b.items_length.symm)

theorem getElem?_items (b : Bag α) (i : Fin b.len) : b.items[i.val]? = some (b.get i) := by
  simp [get]

theorem get_mem (b : Bag α) (i : Fin b.len) : b.get i ∈ b.items :=
  List.get_mem _ _

theorem mem_items_iff (b : Bag α) (a : α) : a ∈ b.items ↔ ∃ i, b.get i = a := by
  constructor
  · intro member
    obtain ⟨i, eq⟩ := List.mem_iff_get.mp member
    exact ⟨i.cast b.items_length, eq⟩
  · rintro ⟨i, rfl⟩
    exact b.get_mem i

/-- Copy the items to a block with one more cell and store an item there. -/
def push (b : Bag α) (a : α) : Bag α where
  slots := b.items ++ [a]
  len := b.len + 1
  len_le := by simp

@[simp] theorem items_push (b : Bag α) (a : α) : (b.push a).items = b.items ++ [a] := by
  simp only [items, push]
  exact List.take_of_length_le (by simp)

/-- The cell that `push` wrote. -/
def last (b : Bag α) (a : α) : Fin (b.push a).len := Fin.last b.len

@[simp] theorem get_last (b : Bag α) (a : α) : (b.push a).get (b.last a) = a := by
  apply Option.some.inj
  rw [← getElem?_items, items_push]
  simp [last]

def set (b : Bag α) (i : Fin b.len) (a : α) : Bag α where
  slots := b.slots.set i a
  len := b.len
  len_le := by simpa using b.len_le

@[simp] theorem items_set (b : Bag α) (i : Fin b.len) (a : α) :
    (b.set i a).items = b.items.set i a := by
  simp only [items, set, List.take_set]

/-- Move the last item into the cell and give up the last cell. -/
def swapRemove (b : Bag α) (i : Fin b.len) : Bag α where
  slots := b.slots.set i (b.get ⟨b.len - 1, Nat.sub_one_lt_of_lt i.isLt⟩)
  len := b.len - 1
  len_le := by
    have bound := b.len_le
    simp only [List.length_set]
    omega

/-- The items other than the one in the given cell. -/
def others (b : Bag α) (i : Fin b.len) : List α := b.items.eraseIdx i

theorem items_perm (b : Bag α) (i : Fin b.len) : (b.get i :: b.others i).Perm b.items :=
  List.getElem_cons_eraseIdx_perm _

/-- Overwriting a cell keeps every reference valid. -/
def keep (b : Bag α) (i : Fin b.len) (a : α) (j : Fin b.len) : Fin (b.set i a).len := j

@[simp] theorem get_keep (b : Bag α) (i : Fin b.len) (a : α) :
    (b.set i a).get (b.keep i a i) = a := by
  apply Option.some.inj
  rw [← getElem?_items, items_set]
  exact List.getElem?_set_self (by simp)

@[simp] theorem others_keep (b : Bag α) (i : Fin b.len) (a : α) :
    (b.set i a).others (b.keep i a i) = b.others i := by
  rw [others, items_set]
  exact List.eraseIdx_set_eq

theorem set_perm (b : Bag α) (i : Fin b.len) (a : α) :
    (b.set i a).items.Perm (a :: b.others i) := by
  rw [items_set]
  exact List.set_perm_cons_eraseIdx (by simp) a

theorem swapRemove_items (b : Bag α) (i : Fin b.len) :
    (b.swapRemove i).items =
      (b.items.set i (b.get ⟨b.len - 1, Nat.sub_one_lt_of_lt i.isLt⟩)).dropLast := by
  rw [List.dropLast_eq_take, List.length_set, items_length]
  simp only [items, swapRemove, List.take_set, List.take_take]
  rw [Nat.min_eq_left (Nat.sub_le b.len 1)]

/-- Removal loses exactly the removed item, wherever it stood. -/
theorem swapRemove_perm (b : Bag α) (i : Fin b.len) : (b.swapRemove i).items.Perm (b.others i) := by
  have nonempty : b.items ≠ [] := by
    rw [← List.length_pos_iff, items_length]
    exact Nat.lt_of_le_of_lt (Nat.zero_le _) i.isLt
  have moved : b.get ⟨b.len - 1, Nat.sub_one_lt_of_lt i.isLt⟩ = b.items.getLast nonempty := by
    apply Option.some.inj
    rw [← getElem?_items, List.getLast_eq_getElem, ← List.getElem?_eq_getElem, items_length]
  have bound : i.val < (b.items.set i (b.items.getLast nonempty)).length := by simp
  rw [swapRemove_items, moved]
  -- with the last item in the cell, the last cell holds one item too many
  have changed : (b.items.set i (b.items.getLast nonempty)).Perm (b.items.getLast nonempty :: b.others i) :=
    List.set_perm_cons_eraseIdx (by simp) _
  have unchanged : (b.items.set i (b.items.getLast nonempty)).getLast
      (List.ne_nil_of_length_pos (by omega)) = b.items.getLast nonempty := by
    rw [List.getLast_eq_getElem, List.getElem_set]
    split
    · rfl
    · simp [List.getLast_eq_getElem]
  have split := List.dropLast_append_getLast (List.ne_nil_of_length_pos (Nat.zero_lt_of_lt bound))
  rw [unchanged] at split
  rw [← split] at changed
  exact List.Perm.cons_inv ((List.perm_append_singleton _ _).symm.trans changed)

/-- Taking out what was just put in leaves everything as it was. -/
@[simp] theorem swapRemove_push (b : Bag α) (a : α) :
    ((b.push a).swapRemove (b.last a)).items = b.items := by
  have place : (b.last a).val = b.items.length := by simp [last]
  rw [swapRemove_items, items_push, List.set_append_right _ _ (Nat.le_of_eq place.symm)]
  simp [place]

/-- The first cell whose item passes the test. -/
def find? (b : Bag α) (p : α → Bool) : Option (Fin b.len) :=
  (List.finRange b.len).find? fun i => p (b.get i)

theorem find?_some (b : Bag α) (p : α → Bool) (i : Fin b.len) (found : b.find? p = some i) :
    p (b.get i) = true :=
  List.find?_some (p := fun i => p (b.get i)) found

theorem find?_none (b : Bag α) (p : α → Bool) :
    b.find? p = none ↔ ∀ a ∈ b.items, p a = false := by
  simp [find?, mem_items_iff]

theorem find?_eq_some_iff (b : Bag α) (p : α → Bool) (i : Fin b.len) :
    b.find? p = some i ↔ p (b.get i) = true ∧ ∀ j < i, p (b.get j) = false := by
  rw [find?, List.find?_eq_some_iff_getElem]
  refine and_congr_right fun _ => ?_
  constructor
  · rintro ⟨k, bound, eq, before⟩ j less
    simp only [List.getElem_finRange] at eq
    subst eq
    simpa using before j less
  · intro before
    refine ⟨i, by simp, by simp, fun j less => ?_⟩
    simpa using before ⟨j, by omega⟩ less

/-- The last cell, seen from a cell in use. -/
def final (b : Bag α) (i : Fin b.len) : Fin b.len := ⟨b.len - 1, Nat.sub_one_lt_of_lt i.isLt⟩

theorem get_eq_getElem (b : Bag α) (i : Fin b.len) (bound : i.val < b.items.length) :
    b.get i = b.items[i.val] := rfl

/-- What a search finds is the first item that passes the test. -/
theorem find?_get (b : Bag α) (p : α → Bool) : (b.find? p).map b.get = b.items.find? p := by
  cases found : b.find? p with
  | none =>
    rw [find?_none] at found
    rw [Option.map_none, eq_comm, List.find?_eq_none]
    intro a member
    rw [found a member]
    decide
  | some i =>
    obtain ⟨passes, before⟩ := (b.find?_eq_some_iff p i).mp found
    rw [Option.map_some, eq_comm, List.find?_eq_some_iff_getElem]
    refine ⟨passes, i.val, by simp, rfl, fun j less => ?_⟩
    have fails := before ⟨j, Nat.lt_trans less i.isLt⟩ less
    rw [get_eq_getElem _ _ (by simp; omega)] at fails
    simpa using fails

/-- Overwriting a cell changes no search that neither the old nor the new item passes. -/
theorem find?_set (b : Bag α) (p : α → Bool) (i : Fin b.len) (a : α) (old : p (b.get i) = false)
    (new : p a = false) : (b.set i a).items.find? p = b.items.find? p := by
  have bound : i.val < b.items.length := by simp
  have split : b.items = b.items.take i ++ b.get i :: b.items.drop (i + 1) := by
    rw [get_eq_getElem _ _ bound, List.getElem_cons_drop, List.take_append_drop]
  rw [items_set, List.set_eq_take_append_cons_drop, if_pos bound]
  conv => rhs; rw [split]
  simp only [List.find?_append, List.find?_cons, old, new]

theorem get_swapRemove (b : Bag α) (i : Fin b.len) (j : Fin (b.swapRemove i).len)
    (k : Fin b.len) (same : k.val = j.val) :
    (b.swapRemove i).get j = if k = i then b.get (b.final i) else b.get k := by
  have bound : j.val < ((b.items.set i (b.get (b.final i))).dropLast).length := by
    have less : j.val < b.len - 1 := j.isLt
    simp only [List.length_dropLast, List.length_set, items_length]
    exact less
  have eq : (b.swapRemove i).get j = ((b.items.set i (b.get (b.final i))).dropLast)[j.val] := by
    apply Option.some.inj
    rw [← getElem?_items, ← List.getElem?_eq_getElem, swapRemove_items]
    rfl
  rw [eq, List.getElem_dropLast, List.getElem_set]
  by_cases here : k = i
  · rw [if_pos here, if_pos (by rw [← same, here])]
  · rw [if_neg here, if_neg (by rw [← same]; omega)]
    simp only [← same]
    rfl

/-- The last item passes the test, and stands behind the first one that does when the cell in
front of both is given up. -/
def Overtakes (b : Bag α) (p : α → Bool) (i : Fin b.len) : Prop :=
  ∃ j, b.find? p = some j ∧ i < j ∧ j < b.final i ∧ p (b.get (b.final i)) = true

instance (b : Bag α) (p : α → Bool) (i : Fin b.len) : Decidable (b.Overtakes p i) :=
  inferInstanceAs (Decidable (∃ j, b.find? p = some j ∧ i < j ∧ j < b.final i ∧ _))

/-- Removal changes no search that the removed item does not pass, unless the last item gets
in front of the one that was found. -/
theorem find?_swapRemove (b : Bag α) (p : α → Bool) (i : Fin b.len) (fails : p (b.get i) = false)
    (ordered : ¬b.Overtakes p i) : (b.swapRemove i).items.find? p = b.items.find? p := by
  rw [← find?_get b]
  cases found : b.find? p with
  | none =>
    rw [find?_none] at found
    rw [Option.map_none, List.find?_eq_none]
    intro a member
    rw [found a (List.mem_of_mem_eraseIdx ((b.swapRemove_perm i).mem_iff.mp member))]
    decide
  | some j =>
    obtain ⟨passes, before⟩ := (b.find?_eq_some_iff p j).mp found
    have different : j ≠ i := by
      rintro rfl
      rw [passes] at fails
      cases fails
    -- it is enough to find the item in some cell
    have at_cell : ∀ (j' : Fin (b.swapRemove i).len), (b.swapRemove i).get j' = b.get j →
        (∀ k < j', p ((b.swapRemove i).get k) = false) →
        (b.swapRemove i).items.find? p = (some j).map b.get := by
      intro j' same earlier
      have first : (b.swapRemove i).find? p = some j' :=
        (find?_eq_some_iff _ _ _).mpr ⟨by rw [same]; exact passes, earlier⟩
      rw [← find?_get, first, Option.map_some, Option.map_some, same]
    by_cases last : j = b.final i
    · -- the item found is the one that is moved
      have less : i.val < b.len - 1 := by
        have eq : j.val = b.len - 1 := congrArg Fin.val last
        omega
      refine at_cell ⟨i.val, less⟩ ?_ ?_
      · rw [b.get_swapRemove i _ i rfl, if_pos rfl, last]
      · intro k earlier
        have position : k.val < i.val := earlier
        rw [b.get_swapRemove i k ⟨k.val, by omega⟩ rfl, if_neg (by simp [Fin.ext_iff]; omega)]
        exact before ⟨k.val, by omega⟩ (by
          have eq : j.val = b.len - 1 := congrArg Fin.val last
          rw [Fin.lt_def]
          simp only
          omega)
    · have less : j.val < b.len - 1 := by
        have ne : j.val ≠ b.len - 1 := fun eq => last (Fin.ext eq)
        omega
      refine at_cell ⟨j.val, less⟩ ?_ ?_
      · rw [b.get_swapRemove i _ j rfl, if_neg different]
      · intro k earlier
        have position : k.val < j.val := earlier
        rw [b.get_swapRemove i k ⟨k.val, by omega⟩ rfl]
        by_cases here : (⟨k.val, by omega⟩ : Fin b.len) = i
        · rw [if_pos here]
          -- the moved item stands before the one found, so it does not pass
          by_contra moved
          refine ordered ⟨j, found, ?_, ?_, by simpa using moved⟩
          · rw [← here]
            exact position
          · exact less
        · rw [if_neg here]
          exact before _ position

/-- The same cells with their contents read another way. -/
def map {β : Type} (f : α → β) (b : Bag α) : Bag β where
  slots := b.slots.map f
  len := b.len
  len_le := by simpa using b.len_le

section Map

variable {β : Type} (f : α → β) (b : Bag α)

theorem len_map : (b.map f).len = b.len := rfl

@[simp] theorem items_map : (b.map f).items = b.items.map f := by
  simp only [items, map, List.map_take]

theorem get_map (i : Fin b.len) : (b.map f).get (i.cast (b.len_map f).symm) = f (b.get i) := by
  apply Option.some.inj
  rw [← getElem?_items, items_map, List.getElem?_map]
  exact congrArg (Option.map f) (b.getElem?_items i)

theorem map_push (a : α) : (b.push a).map f = (b.map f).push (f a) := by
  simp only [map, push, items, List.map_append, List.map_take, List.map_cons, List.map_nil]

theorem map_swapRemove (i : Fin b.len) :
    (b.swapRemove i).map f = (b.map f).swapRemove (i.cast (b.len_map f).symm) := by
  have moved := b.get_map f (b.final i)
  simp only [map, swapRemove, List.map_set, mk.injEq, and_true]
  exact congrArg ((b.slots.map f).set i) moved.symm

theorem map_set (i : Fin b.len) (a : α) :
    (b.set i a).map f = (b.map f).set (i.cast (b.len_map f).symm) (f a) := by
  simp only [map, set, List.map_set]
  rfl

end Map

theorem get_mem_others (b : Bag α) {i j : Fin b.len} (different : j ≠ i) : b.get j ∈ b.others i := by
  rw [others, List.mem_eraseIdx_iff_getElem]
  exact ⟨j.val, by simp, fun same => different (Fin.ext same), rfl⟩

end Bag
