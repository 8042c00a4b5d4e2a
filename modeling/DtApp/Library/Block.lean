import DtApp.Library.Overwrite

/-!
# Allocated blocks

An array on the heap and the pointers to its cells. An access through a pointer gives no result
when it leaves the cells that were allocated, or when the pointer belongs to another block.
-/

/-- The address of a cell, as the block and the index in it. -/
structure Pointer where
  block : Nat
  index : Nat
  deriving DecidableEq

structure Block (α : Type) where
  address : Nat
  cells : List α

namespace Block

variable {α : Type}

/-- There is nothing behind a null pointer. -/
def null : Block α := ⟨0, []⟩

def zeroed (address count : Nat) (zero : α) : Block α := ⟨address, List.replicate count zero⟩

/-- The address of a cell. -/
def cell (b : Block α) (i : Nat) : Pointer := ⟨b.address, i⟩

def read (b : Block α) (p : Pointer) : Option α :=
  if p.block = b.address then b.cells[p.index]? else none

def write (b : Block α) (p : Pointer) (a : α) : Option (Block α) :=
  if p.block = b.address ∧ p.index < b.cells.length then
    some { b with cells := b.cells.set p.index a }
  else none

/-- Copy the first `n` cells of another block. -/
def memcpy (b source : Block α) (n : Nat) : Option (Block α) :=
  if n ≤ source.cells.length ∧ n ≤ b.cells.length then
    some { b with cells := Overwrite.overwrite b.cells 0 (source.cells.take n) }
  else none

@[simp] theorem cell_inj (b : Block α) (i j : Nat) : b.cell i = b.cell j ↔ i = j := by
  simp [cell]

@[simp] theorem read_cell (b : Block α) (i : Nat) : b.read (b.cell i) = b.cells[i]? :=
  if_pos rfl

theorem write_cell (b : Block α) (a : α) {i : Nat} (bound : i < b.cells.length) :
    b.write (b.cell i) a = some { b with cells := b.cells.set i a } :=
  if_pos ⟨rfl, bound⟩

/-- A longer block takes a copy of some cells and keeps its own behind them. -/
theorem memcpy_zeroed (source : Block α) (address n : Nat) (zero : α)
    (fits : n ≤ source.cells.length) :
    (zeroed address (n + 1) zero).memcpy source n = some ⟨address, source.cells.take n ++ [zero]⟩ := by
  have room : n ≤ (zeroed address (n + 1) zero).cells.length := by simp [zeroed]
  have copied : (source.cells.take n).length = n := List.length_take_of_le fits
  rw [memcpy, if_pos ⟨fits, room⟩]
  congr 2
  simp [Overwrite.overwrite, zeroed, copied]

end Block
