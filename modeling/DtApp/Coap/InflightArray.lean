import Mathlib.Algebra.Order.Group.Multiset
import DtApp.Library.Block
import DtApp.Coap.Reference

/-!
# The in-flight table as an array

`new_inflight_packet` and `free_inflight_packet` on the memory that they work on: an allocated
block of records of which a prefix is in use. Every access is checked. The array keeps a
collection of entries, and the table of `CoapEndpoint` is that collection.
-/
namespace DtApp.Coap

/-- Conversion to `size_t`, which has 32 bits on the target. -/
def sizeT (x : Int) : Nat := (x % 2 ^ 32).toNat

theorem sizeT_mul {x y : Nat} (less : x * y < 2 ^ 32) : sizeT (x * y) = x * y := by
  rw [sizeT, ← Int.natCast_mul]
  omega

theorem sizeT_succ {x : Nat} (less : x + 1 < 2 ^ 32) : sizeT (x + 1) = x + 1 := by
  simp only [sizeT]
  omega

theorem sizeT_pred {x : Nat} (positive : 0 < x) (less : x < 2 ^ 32) : sizeT (x - 1) = x - 1 := by
  simp only [sizeT]
  omega

/-! ## Records -/

/-- A `packet_tx_data_item` in memory, where the pointers may be NULL. -/
structure TxRecord where
  packet : CoapPacket
  addr : SockAddr
  responseHandler : Option ResponseHandler
  responseHandlerData : Option HandlerData
  deriving DecidableEq

/-- An `inflight_packet` in memory. -/
structure InflightRecord where
  retransmit : Bool
  packet : CoapPacket
  addr : SockAddr
  retransmissionCount : Nat
  timeout : Int
  deadline : Int
  responseHandler : Option ResponseHandler
  responseHandlerData : Option HandlerData
  deriving DecidableEq

/-- What `k_calloc` leaves in a record. -/
def InflightRecord.zero : InflightRecord := ⟨false, .null, .zero, 0, 0, 0, none, none⟩

/-- `sizeof(inflight_packet)`; the two `s32_t` fields alone take eight bytes. -/
abbrev RecordSize := { size : Nat // 8 ≤ size }

variable (z : Zephyr) (size : RecordSize) (env : Env) (address : Nat)

/-- The assignments of `new_inflight_packet` to the fields of the new entry. A field that is
not assigned keeps what the cell held. -/
def InflightRecord.store (inflight : InflightRecord) (tx : TxRecord) : InflightRecord :=
  let inflight :=
    if z.coapHeaderGetType tx.packet = .con then
      let timeout := kSeconds 10 + env.rand % kSeconds 1
      { inflight with
        retransmit := true, packet := tx.packet, addr := tx.addr, retransmissionCount := 0
        timeout := timeout, deadline := s32 (env.kUptimeGet32 + timeout) }
    else inflight
  { inflight with
    responseHandler := tx.responseHandler, responseHandlerData := tx.responseHandlerData }

/-- The entry that an item asks for. Nothing but the handler is known of a packet that is not
confirmable. -/
def TxRecord.entry (tx : TxRecord) : InflightRecord :=
  if z.coapHeaderGetType tx.packet = .con then
    let timeout := kSeconds 10 + env.rand % kSeconds 1
    { retransmit := true, packet := tx.packet, addr := tx.addr, retransmissionCount := 0
      timeout := timeout, deadline := s32 (env.kUptimeGet32 + timeout)
      responseHandler := tx.responseHandler, responseHandlerData := tx.responseHandlerData }
  else
    { InflightRecord.zero with
      responseHandler := tx.responseHandler, responseHandlerData := tx.responseHandlerData }

theorem InflightRecord.store_zero (tx : TxRecord) :
    InflightRecord.zero.store z env tx = tx.entry z env := by
  by_cases con : z.coapHeaderGetType tx.packet = .con
  · simp only [store, TxRecord.entry, if_pos con]
  · simp only [store, TxRecord.entry, if_neg con]

theorem TxRecord.entry_of_ne_con {tx : TxRecord} (other : z.coapHeaderGetType tx.packet ≠ .con) :
    (tx.entry z env).retransmit = false ∧ (tx.entry z env).packet = .null ∧
      (tx.entry z env).addr = .zero := by
  rw [entry, if_neg other]
  exact ⟨rfl, rfl, rfl⟩

/-! ## The array -/

/-- The two fields of `coap_endpoint` that hold the table. -/
structure InflightArray where
  inflightPackets : Block InflightRecord
  inflightPacketsLen : Nat

/-- `k_calloc(count, sizeof(inflight_packet))`: it also fails when the product is no `size_t`. -/
def kCalloc (count : Nat) : Option (Block InflightRecord) :=
  if env.calloc 0 = true ∧ count * size < 2 ^ 32 then some (.zeroed address count .zero) else none

namespace InflightArray

/-- An endpoint starts with a NULL array. -/
def empty : InflightArray := ⟨.null, 0⟩

/-- The entries at the indices below the length. -/
def entries (a : InflightArray) : List InflightRecord :=
  a.inflightPackets.cells.take a.inflightPacketsLen

/-- The array afterwards and the pointer that is returned, `none` for NULL. There is no result
when an access leaves an allocation. -/
def newInflightPacket (a : InflightArray) (tx : TxRecord) : Option (InflightArray × Option Pointer) :=
  match kCalloc size env address (sizeT (a.inflightPacketsLen + 1)) with
  | none => some (a, none)
  | some newInflightPackets => do
    -- `memcpy` is told a number of bytes
    let copied ← newInflightPackets.memcpy a.inflightPackets
      (sizeT (a.inflightPacketsLen * size) / size)
    let len := sizeT (a.inflightPacketsLen + 1)
    let inflight := copied.cell (sizeT (len - 1))
    let zeroed ← copied.read inflight
    let stored ← copied.write inflight (zeroed.store z env tx)
    some (⟨stored, len⟩, some inflight)

/-- The body of the loop for the entry that was found: the last entry is copied over it. -/
def fillHole (a : InflightArray) (i : Nat) : Option InflightArray := do
  let len := sizeT (a.inflightPacketsLen - 1)
  let last ← a.inflightPackets.read (a.inflightPackets.cell len)
  let filled ← a.inflightPackets.write (a.inflightPackets.cell i) last
  some ⟨filled, len⟩

/-- The search from index `i` on, with so many entries to go. -/
def freeLoop (a : InflightArray) (inflight : Pointer) : (remaining i : Nat) → Option InflightArray
  | 0, _ => some a
  | remaining + 1, i =>
    if a.inflightPackets.cell i = inflight then a.fillHole i
    -- the index is an `int`
    else if i + 1 < 2 ^ 31 then a.freeLoop inflight remaining (i + 1)
    else none

def freeInflightPacket (a : InflightArray) (inflight : Pointer) :
    Option (InflightArray × List Output) := do
  let entry ← a.inflightPackets.read inflight
  let freed ← a.freeLoop inflight a.inflightPacketsLen 0
  some (freed, kFree entry.packet)

/-! ## The bag in the array -/

/-- The block is an allocation that holds the cells of the bag, stale ones included. -/
structure Represents (a : InflightArray) (b : Bag InflightRecord) : Prop where
  cells : a.inflightPackets.cells = b.slots
  len : a.inflightPacketsLen = b.len
  fits : b.slots.length * size < 2 ^ 32

theorem represents_empty : Represents size empty .empty where
  cells := rfl
  len := rfl
  fits := by simp [Bag.empty]

section Represents

variable {size} {a : InflightArray} {b : Bag InflightRecord} (represents : Represents size a b)
include represents

theorem Represents.entries : a.entries = b.items := by
  rw [InflightArray.entries, represents.cells, represents.len, Bag.items]

/-- A record has a size, so that numbers of records stay far below the numbers of bytes. -/
theorem Represents.short : b.len < 2 ^ 29 := by
  have bytes : b.len * 8 ≤ b.slots.length * size := Nat.mul_le_mul b.len_le size.property
  have fits := represents.fits
  omega

theorem Represents.allocated (i : Fin b.len) : i.val < a.inflightPackets.cells.length := by
  rw [represents.cells]
  exact Nat.lt_of_lt_of_le i.isLt b.len_le

theorem Represents.read (i : Fin b.len) :
    a.inflightPackets.read (a.inflightPackets.cell i) = some (b.get i) := by
  have inUse : b.items[i.val]? = b.slots[i.val]? := List.getElem?_take_of_lt i.isLt
  rw [Block.read_cell, represents.cells, ← inUse, b.getElem?_items]

/-- Without memory for a longer array, everything stays as it was. -/
theorem Represents.refuses (tx : TxRecord)
    (noMemory : kCalloc size env address (a.inflightPacketsLen + 1) = none) :
    a.newInflightPacket z size env address tx = some (a, none) := by
  have short := represents.short
  have count : sizeT (a.inflightPacketsLen + 1) = a.inflightPacketsLen + 1 := by
    apply sizeT_succ
    rw [represents.len]
    omega
  rw [newInflightPacket, count, noMemory]

/-- Only the entries are copied, into a block with one zeroed cell behind them. -/
theorem Represents.copies :
    (Block.zeroed address (b.len + 1) InflightRecord.zero).memcpy a.inflightPackets b.len =
      some ⟨address, b.items ++ [.zero]⟩ := by
  have fits : b.len ≤ a.inflightPackets.cells.length := by
    rw [represents.cells]
    exact b.len_le
  rw [Block.memcpy_zeroed _ _ _ _ fits, represents.cells, Bag.items]

/-- The longer array holds the entries that were there, and one more in its last cell. -/
theorem Represents.inserts (tx : TxRecord)
    (memory : kCalloc size env address (a.inflightPacketsLen + 1) ≠ none) :
    ∃ grown, a.newInflightPacket z size env address tx = some (grown, some ⟨address, b.len⟩) ∧
      grown.inflightPackets.address = address ∧ Represents size grown (b.push (tx.entry z env)) := by
  have short := represents.short
  rw [represents.len] at memory
  have enough : env.calloc 0 = true ∧ (b.len + 1) * size < 2 ^ 32 := by
    by_contra lacking
    exact memory (if_neg lacking)
  have allocated : kCalloc size env address (b.len + 1) = some (.zeroed address (b.len + 1) .zero) :=
    if_pos enough
  have length : sizeT (b.len + 1) = b.len + 1 := sizeT_succ (by omega)
  have last : sizeT ((b.len + 1 : Nat) - 1) = b.len := sizeT_pred (by omega) (by omega)
  have bytes : sizeT (b.len * size) / size = b.len := by
    have less : b.len * size < 2 ^ 32 :=
      Nat.lt_of_le_of_lt (Nat.mul_le_mul_right _ (Nat.le_succ b.len)) enough.2
    rw [sizeT_mul less, Nat.mul_div_cancel _ (Nat.lt_of_lt_of_le (by decide) size.property)]
  have zeroed : (b.items ++ [InflightRecord.zero])[b.len]? = some .zero := by
    rw [List.getElem?_append_right (by simp)]
    simp
  have stored : (b.items ++ [InflightRecord.zero]).set b.len (tx.entry z env) =
      (b.push (tx.entry z env)).slots := by
    rw [List.set_append_right _ _ (by simp)]
    simp [Bag.push]
  refine ⟨⟨⟨address, (b.push (tx.entry z env)).slots⟩, b.len + 1⟩, ?_, rfl, ⟨rfl, rfl, ?_⟩⟩
  · simp only [newInflightPacket, represents.len, length, allocated, bytes, represents.copies,
      Option.bind_eq_bind, Option.bind_some, last, Block.read_cell, zeroed,
      InflightRecord.store_zero]
    rw [Block.write_cell _ _ (by simp), Option.bind_some, stored]
    rfl
  · simpa [Bag.push] using enough.2

/-- The fields of an entry are changed through a pointer to it. -/
theorem Represents.writes (i : Fin b.len) (entry : InflightRecord) :
    ∃ block, a.inflightPackets.write (a.inflightPackets.cell i) entry = some block ∧
      Represents size { a with inflightPackets := block } (b.set i entry) := by
  refine ⟨_, Block.write_cell _ _ (represents.allocated i), ?_, represents.len, ?_⟩
  · rw [represents.cells]
    rfl
  · simpa [Bag.set] using represents.fits

theorem Represents.fillHole (i : Fin b.len) :
    ∃ freed, a.fillHole i = some freed ∧ Represents size freed (b.swapRemove i) := by
  have short := represents.short
  have bound := represents.allocated i
  have shorter : sizeT (b.len - 1) = b.len - 1 := sizeT_pred (by omega) (by omega)
  -- the last entry may be the one that is overwritten
  have last : a.inflightPackets.read (a.inflightPackets.cell (b.len - 1)) = some (b.get (b.final i)) :=
    represents.read (b.final i)
  refine ⟨⟨⟨a.inflightPackets.address, (b.swapRemove i).slots⟩, b.len - 1⟩, ?_, ⟨rfl, rfl, ?_⟩⟩
  · simp only [InflightArray.fillHole, represents.len, shorter, Option.bind_eq_bind]
    rw [last, Option.bind_some, Block.write_cell _ _ bound, Option.bind_some, represents.cells]
    rfl
  · simpa [Bag.swapRemove] using represents.fits

end Represents

/-- The search comes to the entry that the pointer points at before its index overflows. -/
theorem freeLoop_eq (a : InflightArray) {target remaining i : Nat} (start : i ≤ target)
    (ahead : target < i + remaining) (short : i + remaining ≤ 2 ^ 31) :
    a.freeLoop (a.inflightPackets.cell target) remaining i = a.fillHole target := by
  induction remaining generalizing i with
  | zero => omega
  | succ remaining ih =>
    rw [freeLoop]
    by_cases here : i = target
    · rw [here, if_pos rfl]
    · have index : i + 1 < 2 ^ 31 := by omega
      rw [if_neg fun same => here ((Block.cell_inj _ _ _).mp same), if_pos index]
      exact ih (by omega) (by omega) (by omega)

/-- Freeing an entry takes it from the bag and releases its packet. -/
theorem Represents.removes {a : InflightArray} {b : Bag InflightRecord}
    (represents : Represents size a b) (i : Fin b.len) :
    ∃ freed, a.freeInflightPacket (a.inflightPackets.cell i) = some (freed, kFree (b.get i).packet) ∧
      Represents size freed (b.swapRemove i) := by
  have short := represents.short
  obtain ⟨freed, filled, after⟩ := represents.fillHole i
  have found : a.freeLoop (a.inflightPackets.cell i) b.len 0 = some freed := by
    rw [← filled]
    exact a.freeLoop_eq (Nat.zero_le _) (by omega) (by omega)
  refine ⟨freed, ?_, after⟩
  rw [freeInflightPacket, represents.read, represents.len, found]
  rfl

/-! ## Sequences of calls -/

/-- A call of one of the two functions. The longer array lies where the allocator puts it, which
may be where an array was that has been freed. -/
inductive Call where
  | newInflightPacket (env : Env) (address : Nat) (tx : TxRecord)
  | freeInflightPacket (inflight : Pointer)

inductive Effect where
  | inserted (entry : InflightRecord)
  | refused
  | removed (entry : InflightRecord)
  /-- An access outside of an allocation. -/
  | fault
  deriving DecidableEq

/-- The entry that a call removes is the one that its pointer points at. -/
def step (a : InflightArray) : Call → InflightArray × List Effect
  | .newInflightPacket env address tx =>
    match a.newInflightPacket z size env address tx with
    | some (grown, some _) => (grown, [.inserted (tx.entry z env)])
    | some (same, none) => (same, [.refused])
    | none => (a, [.fault])
  | .freeInflightPacket inflight =>
    match a.inflightPackets.read inflight, a.freeInflightPacket inflight with
    | some entry, some freed => (freed.1, [.removed entry])
    | _, _ => (a, [.fault])

def calls : Machine InflightArray Call Effect := ⟨empty, step z size⟩

abbrev ArrayConfig := Machine.Config InflightArray Effect

/-- An entry is freed while it is in the table. -/
def inTable (c : ArrayConfig) : Call → Prop
  | .newInflightPacket .. => True
  | .freeInflightPacket inflight =>
    ∃ i < c.state.inflightPacketsLen, inflight = c.state.inflightPackets.cell i

def Effect.inserted? : Effect → Option InflightRecord
  | .inserted entry => some entry
  | _ => none

def Effect.removed? : Effect → Option InflightRecord
  | .removed entry => some entry
  | _ => none

/-- The entries that were inserted, each as it was at that time. -/
def inserted (log : List Effect) : Multiset InflightRecord := log.filterMap Effect.inserted?

/-- The entries that were removed, each as it was when it was. -/
def removed (log : List Effect) : Multiset InflightRecord := log.filterMap Effect.removed?

/-- What the calls so far have made of the table, and what the next call makes of it. -/
structure Collects (c : ArrayConfig) : Prop where
  entries : (c.state.entries : Multiset InflightRecord) + removed c.log = inserted c.log
  accesses : Effect.fault ∉ c.log
  allocated : c.state.inflightPacketsLen ≤ c.state.inflightPackets.cells.length
  refuses : ∀ env address tx, kCalloc size env address (c.state.inflightPacketsLen + 1) = none →
    c.state.newInflightPacket z size env address tx = some (c.state, none)
  inserts : ∀ env address tx, kCalloc size env address (c.state.inflightPacketsLen + 1) ≠ none →
    ∃ grown inflight entry,
      c.state.newInflightPacket z size env address tx = some (grown, some inflight) ∧
      grown.inflightPacketsLen = c.state.inflightPacketsLen + 1 ∧
      inflight = grown.inflightPackets.cell c.state.inflightPacketsLen ∧
      grown.inflightPackets.read inflight = some entry ∧ entry = tx.entry z env ∧
      (z.coapHeaderGetType tx.packet ≠ .con →
        entry.retransmit = false ∧ entry.packet = .null ∧ entry.addr = .zero)
  removes : ∀ i < c.state.inflightPacketsLen, ∃ entry freed,
    c.state.inflightPackets.read (c.state.inflightPackets.cell i) = some entry ∧
      c.state.freeInflightPacket (c.state.inflightPackets.cell i) = some (freed, kFree entry.packet) ∧
      freed.inflightPacketsLen + 1 = c.state.inflightPacketsLen

@[simp] theorem inserted_append (log outs : List Effect) :
    inserted (log ++ outs) = inserted log + inserted outs := by
  simp [inserted]

@[simp] theorem removed_append (log outs : List Effect) :
    removed (log ++ outs) = removed log + removed outs := by
  simp [removed]

@[simp] theorem inserted_inserted (entry : InflightRecord) : inserted [.inserted entry] = {entry} := rfl

@[simp] theorem inserted_refused : inserted [.refused] = 0 := rfl

@[simp] theorem inserted_removed (entry : InflightRecord) : inserted [.removed entry] = 0 := rfl

@[simp] theorem removed_inserted (entry : InflightRecord) : removed [.inserted entry] = 0 := rfl

@[simp] theorem removed_refused : removed [.refused] = 0 := rfl

@[simp] theorem removed_removed (entry : InflightRecord) : removed [.removed entry] = {entry} := rfl

/-- The array holds a bag of what was inserted and not removed. -/
structure Keeps (c : ArrayConfig) (b : Bag InflightRecord) : Prop where
  represents : Represents size c.state b
  balance : (b.items : Multiset InflightRecord) + removed c.log = inserted c.log
  accesses : Effect.fault ∉ c.log

theorem keeps_start : Keeps size (calls z size).start .empty where
  represents := represents_empty size
  balance := rfl
  accesses := List.not_mem_nil

section Keeps

variable {size} {c : ArrayConfig} {b : Bag InflightRecord} (keeps : Keeps size c b)
include keeps

theorem Keeps.next_newInflightPacket (tx : TxRecord) :
    ∃ b', Keeps size ((calls z size).next c (.newInflightPacket env address tx)) b' := by
  by_cases memory : kCalloc size env address (c.state.inflightPacketsLen + 1) = none
  · have refused := keeps.represents.refuses z env address tx memory
    refine ⟨b, ?_⟩
    simp only [Machine.next, calls, step, refused]
    refine ⟨keeps.represents, ?_, by simpa using keeps.accesses⟩
    simpa using keeps.balance
  · obtain ⟨grown, stored, -, represents⟩ := keeps.represents.inserts z env address tx memory
    refine ⟨b.push (tx.entry z env), ?_⟩
    simp only [Machine.next, calls, step, stored]
    refine ⟨represents, ?_, by simpa using keeps.accesses⟩
    rw [Bag.items_push, inserted_append, removed_append, ← keeps.balance, ← Multiset.coe_add,
      removed_inserted, inserted_inserted, add_zero, Multiset.coe_singleton, add_right_comm]

theorem Keeps.next_freeInflightPacket (i : Fin b.len) :
    Keeps size ((calls z size).next c (.freeInflightPacket (c.state.inflightPackets.cell i)))
      (b.swapRemove i) := by
  obtain ⟨freed, found, represents⟩ := keeps.represents.removes _ i
  simp only [Machine.next, calls, step, keeps.represents.read i, found]
  refine ⟨represents, ?_, by simpa using keeps.accesses⟩
  have split : {b.get i} + ((b.swapRemove i).items : Multiset InflightRecord) = b.items :=
    Multiset.coe_eq_coe.mpr (((b.swapRemove_perm i).cons _).trans (b.items_perm i))
  rw [inserted_append, removed_append, ← keeps.balance, ← split, removed_removed, inserted_removed,
    add_zero, add_comm {b.get i}, add_assoc, add_comm {b.get i}]

theorem Keeps.collects : Collects z size c where
  entries := by
    rw [keeps.represents.entries]
    exact keeps.balance
  accesses := keeps.accesses
  allocated := by
    rw [keeps.represents.cells, keeps.represents.len]
    exact b.len_le
  refuses env address tx := keeps.represents.refuses z env address tx
  inserts env address tx memory := by
    obtain ⟨grown, stored, place, represents⟩ := keeps.represents.inserts z env address tx memory
    have read := represents.read (b.last (tx.entry z env))
    rw [Bag.get_last] at read
    refine ⟨grown, ⟨address, b.len⟩, tx.entry z env, stored, ?_, ?_, ?_, rfl, tx.entry_of_ne_con z env⟩
    · rw [represents.len, keeps.represents.len]
      rfl
    · rw [Block.cell, place, keeps.represents.len]
    · rw [← read, Block.cell, place]
      rfl
  removes i bound := by
    rw [keeps.represents.len] at bound
    obtain ⟨freed, found, represents⟩ := keeps.represents.removes _ ⟨i, bound⟩
    refine ⟨b.get ⟨i, bound⟩, freed, keeps.represents.read ⟨i, bound⟩, found, ?_⟩
    rw [represents.len, keeps.represents.len]
    exact Nat.sub_add_cancel (Nat.zero_lt_of_lt bound)

end Keeps

/-- Each call keeps a bag in the array, however often the array was moved and shortened before. -/
theorem inflightArray_collects {c : ArrayConfig} (reach : (calls z size).Reachable inTable c) :
    Collects z size c := by
  have kept : ∃ b, Keeps size c b := by
    refine reach.invariant (fun c => ∃ b, Keeps size c b) ⟨.empty, keeps_start z size⟩ ?_
    intro c call _ admissible ⟨b, keeps⟩
    cases call with
    | newInflightPacket env address tx => exact keeps.next_newInflightPacket z env address tx
    | freeInflightPacket inflight =>
      obtain ⟨i, bound, rfl⟩ := admissible
      rw [keeps.represents.len] at bound
      exact ⟨_, keeps.next_freeInflightPacket z ⟨i, bound⟩⟩
  obtain ⟨b, keeps⟩ := kept
  exact keeps.collects z

/-- An item for a message of the given type, with a handler and no data for it. -/
def sampleTx (type : CoapType) : TxRecord :=
  ⟨(strayRequest type).packet, serverAddr, some .postHandler, none⟩

/-- A confirmable packet comes and goes in front of another one, an insertion fails, and one more
packet takes the place behind the one that was moved. -/
def sampleCalls : List Call :=
  [.newInflightPacket (calmEnv 1 5) 100 (sampleTx .con),
    .newInflightPacket (calmEnv 2 6) 200 (sampleTx .nonCon), .freeInflightPacket ⟨200, 0⟩,
    .newInflightPacket { calmEnv 3 9 with calloc := fun _ => false } 300 (sampleTx .con),
    .newInflightPacket (calmEnv 3 9) 100 (sampleTx .nonCon)]

def sampleSize : RecordSize := ⟨64, by decide⟩

def sampleArray : ArrayConfig :=
  (calls rfcZephyr sampleSize).run (calls rfcZephyr sampleSize).start sampleCalls

theorem inflightArray_collects_sample : Collects rfcZephyr sampleSize sampleArray ∧
    sampleArray.state.entries = [(sampleTx .nonCon).entry rfcZephyr (calmEnv 2 6),
      (sampleTx .nonCon).entry rfcZephyr (calmEnv 3 9)] := by
  refine ⟨inflightArray_collects _ _ (Machine.reachable_run _ ?_), by decide +kernel⟩
  exact ⟨trivial, trivial, ⟨0, by decide +kernel, by decide +kernel⟩, trivial, trivial, trivial⟩

/-! ## The table of the endpoint -/

/-- An entry of the endpoint's table as it lies in memory. -/
def recordOf (inflight : InflightPacket) : InflightRecord where
  retransmit := inflight.retransmit
  packet := inflight.packet
  addr := inflight.addr
  retransmissionCount := inflight.retransmissionCount
  timeout := inflight.timeout
  deadline := inflight.deadline
  responseHandler := some inflight.responseHandler
  responseHandlerData := some inflight.responseHandlerData

def txRecordOf (tx : PacketTxDataItem) : TxRecord :=
  ⟨tx.packet, tx.addr, some tx.responseHandler, some tx.responseHandlerData⟩

theorem entry_txRecordOf (tx : PacketTxDataItem) :
    (txRecordOf tx).entry z env = recordOf (fillInflight z env tx) := by
  by_cases con : z.coapHeaderGetType tx.packet = .con
  · simp only [txRecordOf, TxRecord.entry, fillInflight, recordOf, if_pos con]
    exact if_pos con
  · simp only [txRecordOf, TxRecord.entry, fillInflight, recordOf, if_neg con, InflightRecord.zero]
    exact if_neg con

/-- The array holds the endpoint's table, each entry in its cell. -/
def Implements (a : InflightArray) (ep : CoapEndpoint) : Prop :=
  Represents size a (ep.inflight.map recordOf)

theorem implements_empty (sock : Int) (resources : List CoapResource) :
    Implements size empty ⟨sock, resources, .empty⟩ :=
  represents_empty size

section Implements

variable {size} {a : InflightArray} {ep : CoapEndpoint} (implements : Implements size a ep)
include implements

theorem Implements.refuses (tx : PacketTxDataItem)
    (refused : DtApp.Coap.newInflightPacket z env ep tx = none) :
    a.newInflightPacket z size env address (txRecordOf tx) = some (a, none) := by
  have noMemory : env.calloc 0 ≠ true := by
    intro memory
    rw [DtApp.Coap.newInflightPacket, if_pos memory] at refused
    cases refused
  exact Represents.refuses z env address implements _ (if_neg fun enough => noMemory enough.1)

/-- A pointer to the new entry is its index, in the block of the longer array. -/
theorem Implements.inserts (tx : PacketTxDataItem) {grown : CoapEndpoint} {i : Fin grown.inflight.len}
    (inserted : DtApp.Coap.newInflightPacket z env ep tx = some ⟨grown, i⟩)
    (fits : (ep.inflight.len + 1) * size < 2 ^ 32) :
    ∃ a', a.newInflightPacket z size env address (txRecordOf tx) =
      some (a', some (a'.inflightPackets.cell i)) ∧ Implements size a' grown := by
  rw [DtApp.Coap.newInflightPacket] at inserted
  split at inserted
  · next memory =>
    cases inserted
    have allocated : kCalloc size env address (a.inflightPacketsLen + 1) ≠ none := by
      rw [implements.len, kCalloc, if_pos ⟨memory, fits⟩]
      exact Option.some_ne_none _
    obtain ⟨a', stored, place, represents⟩ :=
      Represents.inserts z env address implements (txRecordOf tx) allocated
    refine ⟨a', ?_, ?_⟩
    · rw [stored, Block.cell, place]
      rfl
    · rw [entry_txRecordOf, ← Bag.map_push] at represents
      exact represents
  · cases inserted

theorem Implements.reads (i : Fin ep.inflight.len) :
    a.inflightPackets.read (a.inflightPackets.cell i) = some (recordOf (ep.inflight.get i)) := by
  have read := Represents.read implements (i.cast (ep.inflight.len_map recordOf).symm)
  rw [Bag.get_map] at read
  exact read

/-- As `txrx_thread` counts a retransmission or disarms an entry. -/
theorem Implements.writes (i : Fin ep.inflight.len) (inflight : InflightPacket) :
    ∃ block, a.inflightPackets.write (a.inflightPackets.cell i) (recordOf inflight) = some block ∧
      Implements size { a with inflightPackets := block }
        { ep with inflight := ep.inflight.set i inflight } := by
  obtain ⟨block, written, represents⟩ :=
    Represents.writes implements (i.cast (ep.inflight.len_map recordOf).symm) (recordOf inflight)
  rw [← Bag.map_set] at represents
  exact ⟨block, written, represents⟩

/-- The same entry goes, and the same packet is released. -/
theorem Implements.removes (i : Fin ep.inflight.len) :
    ∃ a', a.freeInflightPacket (a.inflightPackets.cell i) =
      some (a', (DtApp.Coap.freeInflightPacket ep i).2) ∧
      Implements size a' (DtApp.Coap.freeInflightPacket ep i).1 := by
  obtain ⟨a', found, represents⟩ :=
    Represents.removes _ implements (i.cast (ep.inflight.len_map recordOf).symm)
  rw [Bag.get_map] at found
  rw [← Bag.map_swapRemove] at represents
  exact ⟨a', found, represents⟩

end Implements

end InflightArray

end DtApp.Coap
