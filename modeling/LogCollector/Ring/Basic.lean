import LogCollector.Lib.Counter

/-!
# The lockless ring

`struct ring` holds pointers in a table of a power of two slots. Producers and
consumers each have a head and a tail, 32-bit counters that wrap and are masked
when the table is accessed. This module has the pure parts of the operations:
how `__ring_move_prod_head` and `__ring_move_cons_head` settle how many objects
to move, and the index pairs `ENQUEUE_PTRS` and `DEQUEUE_PTRS` copy, in order.

The `single` flag of a head-tail pair, and the `RING_F_SP_ENQ` and
`RING_F_SC_DEQ` flags it stands for, are handed to every operation and read by
none, so they are not part of the model: both modes run the same steps.
-/

namespace LogCollector

/-- The size, mask and capacity of a ring made by `ring_init`. -/
structure RingShape where
  size : UInt32
  mask : UInt32
  capacity : UInt32
  bits : Nat
  bits_pos : 1 ≤ bits
  bits_le : bits ≤ 31
  size_eq : size.toNat = 2 ^ bits
  mask_eq : mask.toNat = 2 ^ bits - 1
  capacity_le : capacity.toNat ≤ 2 ^ bits - 1

/-- `RING_SIZE`. -/
def RING_SIZE : UInt32 := 262144

/-- `RING_SZ_MASK`. -/
def RING_SZ_MASK : UInt32 := 0x7fffffff

/-- `ring_init` without `RING_F_EXACT_SZ`: the size, mask and capacity it
stores, `none` where it is `FATAL`. -/
def ringInit (count : UInt32) : Option (UInt32 × UInt32 × UInt32) :=
  if ¬ ((count - 1) &&& count = 0) ∨ count > RING_SZ_MASK then none
  else some (count, count - 1, count - 1)

/-- The shape of every ring the collector creates. -/
def ringShape : RingShape where
  size := RING_SIZE
  mask := RING_SIZE - 1
  capacity := RING_SIZE - 1
  bits := 18
  bits_pos := by decide
  bits_le := by decide
  size_eq := by decide
  mask_eq := by decide
  capacity_le := by decide

example : ringInit RING_SIZE = some (ringShape.size, ringShape.mask, ringShape.capacity) := by
  decide

/-- `struct ring_headtail`. -/
structure RingHeadtail where
  head : UInt32
  tail : UInt32

/-- `struct ring` and the table of slots behind it. -/
structure Ring (α : Type*) where
  shape : RingShape
  prod : RingHeadtail
  cons : RingHeadtail
  slots : UInt32 → α

/-- `enum ring_queue_behavior`. -/
inductive RingQueueBehavior
  | fixed
  | variable
deriving DecidableEq

/-- How many of `n` objects there is room for. -/
def settle (n room : UInt32) : RingQueueBehavior → UInt32
  | .fixed => if n > room then 0 else n
  | .variable => if n > room then room else n

/-- `*free_entries` in `__ring_move_prod_head`. -/
def freeEntries (capacity consTail oldHead : UInt32) : UInt32 := capacity + consTail - oldHead

/-- `*entries` in `__ring_move_cons_head`. -/
def entries (prodTail oldHead : UInt32) : UInt32 := prodTail - oldHead

/-- `ring_count`. -/
def Ring.count {α : Type*} (r : Ring α) : UInt32 :=
  let count := (r.prod.tail - r.cons.tail) &&& r.shape.mask
  if count > r.shape.capacity then r.shape.capacity else count

/-! ## The copy loops -/

/-- A copy between slot `idx` of the ring and entry `i` of the object table. -/
structure SlotCopy where
  idx : UInt32
  i : UInt32
deriving DecidableEq

/-- `for (; i < bound; i += 4, idx += 4)`, four copies a round. The last two
components are the values of `i` and `idx` after the loop. -/
def unrolledCopies (bound : UInt32) : Nat → UInt32 → UInt32 →
    Option (List SlotCopy × UInt32 × UInt32)
  | 0, _, _ => none
  | fuel + 1, i, idx =>
    if i < bound then
      (unrolledCopies bound fuel (i + 4) (idx + 4)).map fun (rest, i', idx') =>
        (⟨idx, i⟩ :: ⟨idx + 1, i + 1⟩ :: ⟨idx + 2, i + 2⟩ :: ⟨idx + 3, i + 3⟩ :: rest, i', idx')
    else some ([], i, idx)

/-- `switch (n & 0x3)`, whose cases fall through. -/
def remainderCopies (n i idx : UInt32) : List SlotCopy :=
  match (n &&& 3).toNat with
  | 3 => [⟨idx, i⟩, ⟨idx + 1, i + 1⟩, ⟨idx + 2, i + 2⟩]
  | 2 => [⟨idx, i⟩, ⟨idx + 1, i + 1⟩]
  | 1 => [⟨idx, i⟩]
  | _ => []

/-- `for (; again i idx; i++, idx++)`, one copy a round. -/
def copiesWhile (again : UInt32 → UInt32 → Bool) : Nat → UInt32 → UInt32 →
    Option (List SlotCopy × UInt32)
  | 0, _, _ => none
  | fuel + 1, i, idx =>
    if again i idx then
      (copiesWhile again fuel (i + 1) (idx + 1)).map fun (rest, i') => (⟨idx, i⟩ :: rest, i')
    else some ([], i)

/-- The copies of `ENQUEUE_PTRS` and of `DEQUEUE_PTRS`, in the order in which
they are made. -/
def copyPtrs (shape : RingShape) (head n : UInt32) : Option (List SlotCopy) :=
  let idx := head &&& shape.mask
  let fuel := n.toNat + 1
  if idx + n < shape.size then do
    let (unrolled, i, idx) ← unrolledCopies (n &&& ~~~3) fuel 0 idx
    return unrolled ++ remainderCopies n i idx
  else do
    let (upper, i) ← copiesWhile (fun _ idx => idx < shape.size) fuel 0 idx
    let (lower, _) ← copiesWhile (fun i _ => i < n) fuel i 0
    return upper ++ lower

end LogCollector
